import HamlTemplate.Proofs.Events
import HamlTemplate.Proofs.FilterBody

/-!
# The history of a collector

A collector is told to start a block, to take a line and to finish, in any order, and goes on after
errors. What it holds is told by its calls: the block of the latest start that has succeeded, with
the lines that have been offered since, unless a call since then has closed the block.
`obeys_of_calls` says so, and what the next call gives for each kind of call.
-/

namespace HamlTemplate

/-- A line that begins a filter block: a colon and a word. -/
def Text.IsFilterLine (text : Text) : Prop := ∃ name : Text, text = ':' :: name ∧ name.IsWord

theorem FilterBlock.start_of_isWord {name : Text} (word : name.IsWord) (width line : Nat) :
    start (':' :: name) width line = .ok ⟨name, width, line, []⟩ := by
  have named : name? (':' :: name) = some name := by
    obtain ⟨nonempty, all⟩ := word
    simpa [name?, nonempty] using all
  rw [start, named]

theorem FilterBlock.start_of_not_isFilterLine {text : Text} (other : ¬text.IsFilterLine)
    (width line : Nat) : start text width line = .error ⟨.invalidFilterName text, line⟩ := by
  cases started : start text width line with
  | ok block => exact absurd ⟨block.name, start_eq_ok_name started⟩ other
  | error e =>
    rw [start] at started
    split at started <;> cases started
    rfl

namespace Collector

inductive Call where
  | start (text : Text) (width number : Nat)
  | offer (line : Line)
  | finish
  deriving DecidableEq, Repr

namespace Call

def perform (registry : Registry) : Call → EStateM SourceError Collector (Option Node)
  | start text width number => do
    Collector.start text width number
    return none
  | offer line => Collector.offer registry line
  | finish => Collector.finish registry

def IsStart : Call → Prop
  | start .. => True
  | offer _ | finish => False

/-- The call is a start that succeeds. -/
def Succeeds : Call → Prop
  | start text _ _ => text.IsFilterLine
  | offer _ | finish => False

/-- The call ends a block whose own line has the given width: it finishes it, or offers a line that
is not blank and no deeper. -/
def Closes (width : Nat) : Call → Prop
  | start .. => False
  | offer line => line.isBlank = false ∧ line.width ≤ width
  | finish => True

/-- The line of a body that the call offers, if it does. Nothing is kept of a blank one. -/
def line? : Call → Option Text
  | offer line => some (if line.isBlank then [] else line.indent ++ line.text)
  | start .. | finish => none

end Call

def afterCalls (registry : Registry) (calls : List Call) : Collector :=
  calls.foldl (fun c call => stateOf (call.perform registry c)) none

/-- The calls leave a block open. The latest start among them to succeed has begun it, no call since
has closed it, and its body are the lines that have been offered since. -/
def LeaveOpen (calls : List Call) (block : FilterBlock) : Prop :=
  ∃ earlier since,
    calls = earlier ++ .start (':' :: block.name) block.baseWidth block.line :: since ∧
      block.name.IsWord ∧ (∀ call ∈ since, ¬call.Succeeds ∧ ¬call.Closes block.baseWidth) ∧
      block.body.reverse = since.filterMap Call.line?

variable {registry : Registry} {calls : List Call} {call : Call} {block : FilterBlock}
  {line : Line}

/-! ### One call -/

theorem perform_start {name : Text} (word : name.IsWord) (width number : Nat) (c : Collector) :
    (Call.start (':' :: name) width number).perform registry c =
      .ok none (some ⟨name, width, number, []⟩) := by
  simp only [Call.perform, start, Bind.bind, EStateM.bind, FilterBlock.start_of_isWord word]
  rfl

theorem perform_start_of_other {text : Text} (other : ¬text.IsFilterLine) (width number : Nat)
    (c : Collector) :
    (Call.start text width number).perform registry c =
      .error ⟨.invalidFilterName text, number⟩ c := by
  simp only [Call.perform, start, Bind.bind, EStateM.bind,
    FilterBlock.start_of_not_isFilterLine other]

/-- Without a block there is nothing to take a line into and nothing to finish. -/
theorem perform_idle (other : ¬call.IsStart) : call.perform registry none = .ok none none := by
  cases call with
  | start => exact absurd trivial other
  | offer | finish => rfl

/-- A call that closes a block gives its node, or the error that its filter is unknown. -/
theorem perform_of_closes (closes : call.Closes block.baseWidth) :
    call.perform registry (some block) =
      match registry.compile? block.name block.bodyText with
      | some output => .ok (some (.leaf block.line (.filter block.name output))) none
      | none => .error ⟨.unknownFilter block.name, block.line⟩ none := by
  have finished : call.perform registry (some block) = finish registry (some block) := by
    cases call with
    | start => exact closes.elim
    | finish => rfl
    | offer line =>
      obtain ⟨content, shallow⟩ := closes
      have ends : block.endsAt line = true := by simp [FilterBlock.endsAt, content, shallow]
      rw [Call.perform, offer, if_pos ends]
  rw [finished, finish, FilterBlock.finish]
  cases registry.compile? block.name block.bodyText <;> rfl

/-- A line that does not close the block is added to its body. -/
theorem perform_of_stays (other : ¬call.IsStart) (stays : ¬call.Closes block.baseWidth) :
    call.perform registry (some block) =
      .ok none (some { block with body := call.line?.toList ++ block.body }) := by
  cases call with
  | start => exact absurd trivial other
  | finish => exact absurd trivial stays
  | offer line =>
    have goes : ¬block.endsAt line = true := by
      simpa [FilterBlock.endsAt, Call.Closes] using stays
    rw [Call.perform, offer, if_neg goes]
    rfl

theorem afterCalls_concat (registry : Registry) (calls : List Call) (call : Call) :
    afterCalls registry (calls ++ [call]) =
      stateOf (call.perform registry (afterCalls registry calls)) := by
  rw [afterCalls, afterCalls, List.foldl_append]
  rfl

/-! ### One call more -/

theorem not_leaveOpen_nil (block : FilterBlock) : ¬LeaveOpen [] block := by
  rintro ⟨earlier, since, split, _⟩
  simp at split

theorem Call.Succeeds.isStart (h : call.Succeeds) : call.IsStart := by
  cases call with
  | start => trivial
  | offer | finish => exact h

private theorem filterMap_line?_singleton (call : Call) :
    ([call].filterMap Call.line?).reverse = call.line?.toList := by
  cases call <;> rfl

/-- One call more leaves a block open if it begins it, or if it neither begins nor closes one and
the block was open before, without the line that it may offer. -/
theorem leaveOpen_concat_iff :
    LeaveOpen (calls ++ [call]) block ↔
      (call = .start (':' :: block.name) block.baseWidth block.line ∧ block.name.IsWord ∧
          block.body = []) ∨
        ¬call.Succeeds ∧ ∃ before, LeaveOpen calls before ∧ ¬call.Closes before.baseWidth ∧
          block = { before with body := call.line?.toList ++ before.body } := by
  constructor
  · rintro ⟨earlier, since, split, word, inside, body⟩
    obtain rfl | ⟨since, last, rfl⟩ := List.eq_nil_or_concat' since
    · obtain ⟨_, same⟩ := List.append_inj' split rfl
      exact .inl ⟨List.singleton_inj.mp same, word, List.reverse_eq_nil_iff.mp body⟩
    · rw [← List.cons_append, ← List.append_assoc] at split
      obtain ⟨rfl, same⟩ := List.append_inj' split rfl
      cases same
      obtain ⟨before, final⟩ := List.forall_mem_append.mp inside
      obtain ⟨fails, stays⟩ := final call List.mem_cons_self
      refine .inr ⟨fails, { block with body := (since.filterMap Call.line?).reverse },
        ⟨earlier, since, rfl, word, before, List.reverse_reverse _⟩, stays, ?_⟩
      rw [List.filterMap_append, List.reverse_eq_iff, List.reverse_append,
        filterMap_line?_singleton] at body
      exact congrArg (FilterBlock.mk block.name block.baseWidth block.line) body
  · rintro (⟨rfl, word, empty⟩ |
      ⟨fails, before, ⟨earlier, since, rfl, word, inside, body⟩, stays, rfl⟩)
    · exact ⟨calls, [], rfl, word, nofun, by rw [empty]; rfl⟩
    · refine ⟨earlier, since ++ [call], by simp, word, ?_, ?_⟩
      · exact List.forall_mem_append.mpr ⟨inside, List.forall_mem_singleton.mpr ⟨fails, stays⟩⟩
      · rw [List.filterMap_append, List.reverse_eq_iff, List.reverse_append,
          filterMap_line?_singleton, ← body, List.reverse_reverse]

theorem stateOf_perform_of_closes (closes : call.Closes block.baseWidth) :
    stateOf (call.perform registry (some block)) = none := by
  rw [perform_of_closes closes]
  split <;> rfl

/-- What one call leaves a collector with. -/
theorem stateOf_perform_eq_some_iff (c : Collector) :
    stateOf (call.perform registry c) = some block ↔
      (call = .start (':' :: block.name) block.baseWidth block.line ∧ block.name.IsWord ∧
          block.body = []) ∨
        ¬call.Succeeds ∧ ∃ before, c = some before ∧ ¬call.Closes before.baseWidth ∧
          block = { before with body := call.line?.toList ++ before.body } := by
  by_cases starts : call.IsStart
  · cases call with
    | offer | finish => exact starts.elim
    | start text width number =>
      by_cases filter : text.IsFilterLine
      · obtain ⟨name, rfl, word⟩ := filter
        rw [perform_start word]
        constructor
        · intro same
          cases Option.some.inj same
          exact .inl ⟨rfl, word, rfl⟩
        · rintro (⟨same, _, empty⟩ | ⟨fails, _⟩)
          · cases same
            rw [← empty]
            rfl
          · exact absurd ⟨name, rfl, word⟩ fails
      · rw [perform_start_of_other filter]
        constructor
        · intro same
          exact .inr ⟨filter, block, same, id, rfl⟩
        · rintro (⟨same, word, _⟩ | ⟨_, before, rfl, _, rfl⟩)
          · cases same
            exact absurd ⟨block.name, rfl, word⟩ filter
          · rfl
  · have fails : ¬call.Succeeds := mt Call.Succeeds.isStart starts
    have began : ¬(call = .start (':' :: block.name) block.baseWidth block.line ∧
        block.name.IsWord ∧ block.body = []) := by
      rintro ⟨rfl, _⟩
      exact starts trivial
    rw [or_iff_right began, and_iff_right fails]
    cases c with
    | none =>
      rw [perform_idle starts]
      exact iff_of_false nofun nofun
    | some before =>
      simp only [Option.some.injEq, exists_eq_left']
      by_cases closes : call.Closes before.baseWidth
      · rw [stateOf_perform_of_closes closes]
        exact iff_of_false nofun fun h => h.1 closes
      · rw [perform_of_stays starts closes, and_iff_right closes]
        exact ⟨fun same => (Option.some.inj same).symm, fun same => congrArg some same.symm⟩

/-- A collector holds the block that the calls have left open, if there is one. -/
theorem afterCalls_eq_some_iff (registry : Registry) (calls : List Call) (block : FilterBlock) :
    afterCalls registry calls = some block ↔ LeaveOpen calls block := by
  induction calls using List.reverseRecOn generalizing block with
  | nil => exact iff_of_false nofun (not_leaveOpen_nil block)
  | append_singleton calls call ih =>
    rw [afterCalls_concat, stateOf_perform_eq_some_iff, leaveOpen_concat_iff]
    simp only [ih]

/-! ### The law of a collector -/

/-- What holds of a collector behind calls, and of whatever call comes next. -/
structure Obeys (registry : Registry) (calls : List Call) (c : Collector) : Prop where
  /-- It is collecting if a start has succeeded and no call since then has closed the block. -/
  collecting : c.isSome = true ↔ ∃ block, LeaveOpen calls block
  /-- It holds the block of the latest such start, with the lines that have been offered since. -/
  holds : ∀ block, LeaveOpen calls block → c = some block
  /-- A filter line starts a block, whatever has been held before. -/
  started : ∀ (name : Text) (width number : Nat), name.IsWord →
    (Call.start (':' :: name) width number).perform registry c =
      .ok none (some ⟨name, width, number, []⟩)
  /-- No other line starts one, and what has been held before is kept. -/
  refused : ∀ (text : Text) (width number : Nat), ¬text.IsFilterLine →
    (Call.start text width number).perform registry c =
      .error ⟨.invalidFilterName text, number⟩ c
  /-- A call that closes the open block leaves the collector idle, and gives the node of that block
  or the error of its line. -/
  closed : ∀ (block : FilterBlock) (call : Call), LeaveOpen calls block →
    call.Closes block.baseWidth →
    ∃ text, FilterBlock.IsBody block.body.reverse text ∧ call.perform registry c =
      match registry.compile? block.name text with
      | some output => .ok (some (.leaf block.line (.filter block.name output))) none
      | none => .error ⟨.unknownFilter block.name, block.line⟩ none
  /-- A line that does not close the open block is added to it. -/
  added : ∀ (block : FilterBlock) (call : Call), LeaveOpen calls block → ¬call.IsStart →
    ¬call.Closes block.baseWidth →
    call.perform registry c = .ok none (some { block with body := call.line?.toList ++ block.body })
  /-- While no block is open, lines and finishing give nothing and change nothing. -/
  idle : ∀ call : Call, (∀ block, ¬LeaveOpen calls block) → ¬call.IsStart →
    c = none ∧ call.perform registry c = .ok none c

/-- After any calls, whether they have succeeded or failed, a collector that was idle at first goes
by what they have left open. -/
theorem obeys_of_calls (registry : Registry) (calls : List Call) :
    Obeys registry calls (afterCalls registry calls) := by
  have open_iff := afterCalls_eq_some_iff registry calls
  exact {
    collecting := Option.isSome_iff_exists.trans (exists_congr open_iff)
    holds := fun block left => (open_iff block).mpr left
    started := fun name width number word => perform_start word width number _
    refused := fun text width number other => perform_start_of_other other width number _
    closed := by
      intro block call left closes
      rw [(open_iff block).mpr left]
      exact ⟨block.bodyText, block.isBody_bodyText, perform_of_closes closes⟩
    added := by
      intro block call left other stays
      rw [(open_iff block).mpr left]
      exact perform_of_stays other stays
    idle := by
      intro call none_open other
      have empty : afterCalls registry calls = none :=
        Option.eq_none_iff_forall_ne_some.mpr fun block held =>
          none_open block ((open_iff block).mp held)
      rw [empty]
      exact ⟨rfl, perform_idle other⟩ }

/-- A block that is started while another one is open takes its place. Lines with nothing in them
do not close it, nor does a start that fails. -/
example : LeaveOpen
    [.start ":css".toList 0 1, .offer ⟨"  ".toList, "a".toList, 2, 1⟩,
      .start ":js".toList 2 3, .offer ⟨[], [], 4, 1⟩, .start ":".toList 0 5,
      .offer ⟨"    ".toList, "b".toList, 6, 1⟩]
    ⟨"js".toList, 2, 3, ["    b".toList, []]⟩ :=
  (afterCalls_eq_some_iff .builtins _ _).mp (by decide +kernel)

end Collector

end HamlTemplate
