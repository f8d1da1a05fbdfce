import HamlTemplate.Proofs.Gathering
import HamlTemplate.Proofs.LineOrder

/-!
# Every line is read once

There are five ways to read on in a source: a logical line, a line of a body, a physical line, a
statement and an element. Some look at the next line before they take it, others take lines until
they are content. In whatever order they are used, each begins where the one before has ended, takes
the lines up to where it ends, and depends on no other. So the lines that have been read are the
first lines of the source, and their number is the one that the position has.
-/

namespace HamlTemplate

inductive ReadOp where
  | line
  /-- A line of a body deeper than a width, or else a logical line. -/
  | bodyLine (base : Nat)
  | physical
  /-- The statement that begins with some code. -/
  | statement (code : Text)
  /-- The element that begins with a text. -/
  | element (text : Text)
  deriving DecidableEq, Repr

inductive ReadAnswer where
  | line (line? : Option Line)
  | physical (raw? : Option Text)
  | statement (result : Except SourceError Statement)
  | element (result : Except SourceError Element)
  deriving DecidableEq

def ReadAnswer.isNone : ReadAnswer → Bool
  | line none | physical none => true
  | _ => false

/-- What an action gives, whatever position it ends at. -/
def Reading.result {α : Type} (action : Reading α) (c : Cursor) : Except SourceError α :=
  match action c with
  | .ok a _ => .ok a
  | .error e _ => .error e

namespace ReadOp

def answer (c : Cursor) : ReadOp → ReadAnswer
  | line => .line (c.takeLine?.map Prod.fst)
  | bodyLine base => .line ((c.takeBodyLine? base).map Prod.fst)
  | physical => .physical (c.takePhysical?.map Prod.fst)
  | statement code => .statement ((Reading.statement code).result c)
  | element text => .element ((Reading.element text).result c)

/-- The position behind what is read, which stays where it is if no line is left. -/
def next (c : Cursor) : ReadOp → Cursor
  | line => (c.takeLine?.map Prod.snd).getD c
  | bodyLine base => ((c.takeBodyLine? base).map Prod.snd).getD c
  | physical => (c.takePhysical?.map Prod.snd).getD c
  | statement code => Cursor.after id (Reading.statement code) c
  | element text => Cursor.after id (Reading.element text) c

/-- The lines between a position and the one that reading leads to. -/
def taken (c : Cursor) (op : ReadOp) : List Text :=
  c.pending.take ((op.next c).consumed - c.consumed)

/-- A line has to be there to be read, while a statement or an element may need no further one. -/
def needsLine : ReadOp → Bool
  | line | bodyLine _ | physical => true
  | statement _ | element _ => false

end ReadOp

namespace Cursor

def nextAll (c : Cursor) (ops : List ReadOp) : Cursor := ops.foldl ReadOp.next c

def takenAll (c : Cursor) : List ReadOp → List Text
  | [] => []
  | op :: ops => op.taken c ++ (op.next c).takenAll ops

def upTo (c : Cursor) (n : Nat) : Cursor := ⟨c.pending.take n, c.consumed⟩

variable {c after : Cursor} {line : Line} {base? : Option Nat}

theorem nextAll_cons (c : Cursor) (op : ReadOp) (ops : List ReadOp) :
    c.nextAll (op :: ops) = (op.next c).nextAll ops := rfl

/-- The piped lines at the front do not depend on what follows them. -/
private theorem pipedRun_take (lines : List Text) :
    pipedRun (lines.take (pipedRun lines).length) = pipedRun lines := by
  simp only [pipedRun, ← List.take_takeWhile, List.take_length]

/-- A logical line depends on the lines that it covers only. -/
theorem takeLine?_upTo (h : c.takeLine? = some (line, after)) :
    (c.upTo line.span).takeLine? = some (line, ⟨[], after.consumed⟩) := by
  cases pending : c.pending with
  | nil => simp [takeLine?, pending] at h
  | cons raw rest =>
    rw [takeLine?_cons pending] at h
    split at h
    · rename_i piped
      cases h
      have ahead : (c.upTo ((pipedRun rest).length + 1)).pending =
          raw :: rest.take (pipedRun rest).length := by
        rw [upTo, pending, List.take_succ_cons]
      rw [takeLine?_cons ahead, if_pos piped, pipedRun_take]
      simp [upTo, skip]
    · rename_i single
      cases h
      have ahead : (c.upTo 1).pending = [raw] := by
        rw [upTo, pending, List.take_succ_cons, List.take_zero]
      rw [takeLine?_cons ahead, if_neg single]
      simp [upTo, skip]

/-- So does a line of a body. -/
theorem takeWithin?_upTo (h : c.takeWithin? base? = some (line, after)) :
    (c.upTo line.span).takeWithin? base? = some (line, ⟨[], after.consumed⟩) := by
  cases base? with
  | none => exact takeLine?_upTo h
  | some base =>
    cases pending : c.pending with
    | nil => simp [takeWithin?, takeBodyLine?, pending] at h
    | cons raw rest =>
      obtain ⟨_, positive, _, _⟩ := takeWithin?_eq_some h
      have first : (c.upTo line.span).pending = raw :: rest.take (line.span - 1) := by
        rw [upTo, pending, List.take_cons positive]
      simp only [takeWithin?, takeBodyLine?, pending, first] at h ⊢
      split at h
      · rename_i body
        cases h
        rw [if_pos body]
        simp [upTo, skip, pending]
      · rename_i ended
        rw [if_neg ended]
        exact takeLine?_upTo h

/-- Gathering depends on the lines that are added only. -/
theorem gatherFrom_local (wanted : Text → Bool) (tidy : Text → Text) (lines : List Text)
    (consumed : Nat) (gathered : Gathered) :
    ∃ found k, k ≤ lines.length ∧
      gatherFrom wanted tidy lines consumed gathered = (found, ⟨lines.drop k, consumed + k⟩) ∧
      ∀ n, gatherFrom wanted tidy (lines.take (k + n)) consumed gathered =
        (found, ⟨(lines.drop k).take n, consumed + k⟩) := by
  induction lines generalizing consumed gathered with
  | nil =>
    by_cases now : wanted gathered.text = true
    · refine ⟨some gathered, 0, Nat.le_refl 0, ?_, fun n => ?_⟩ <;> simp [gatherFrom, now]
    · refine ⟨none, 0, Nat.le_refl 0, ?_, fun n => ?_⟩ <;> simp [gatherFrom, now]
  | cons raw rest ih =>
    by_cases now : wanted gathered.text = true
    · refine ⟨some gathered, 0, Nat.zero_le _, ?_, fun n => ?_⟩
      · simp [gatherFrom, now]
      · rw [gatherFrom.eq_def, if_pos now]
        simp
    · obtain ⟨found, k, bound, whole, part⟩ := ih (consumed + 1) (gathered.add (tidy raw))
      have count : consumed + 1 + k = consumed + (k + 1) := by omega
      refine ⟨found, k + 1, Nat.succ_le_succ bound, ?_, fun n => ?_⟩
      · rw [gatherFrom, if_neg now, whole, count, List.drop_succ_cons]
      · rw [Nat.add_right_comm, List.take_succ_cons, gatherFrom, if_neg now, part n, count,
          List.drop_succ_cons]

end Cursor

namespace Reading

variable {α β : Type}

/-- A result with no more than the next `n` lines before its position. -/
def truncated (n : Nat) :
    EStateM.Result SourceError Cursor α → EStateM.Result SourceError Cursor α
  | .ok a c => .ok a (c.upTo n)
  | .error e c => .error e (c.upTo n)

/-- An action takes some of the next lines and depends on no others: however many are left behind
those, it gives the same. -/
def Local (action : Reading α) : Prop :=
  ∀ c, ∃ k, k ≤ c.pending.length ∧ Cursor.after id action c = c.skip k ∧
    ∀ n, action (c.upTo (k + n)) = truncated n (action c)

/-- An action that reads no line depends on none. -/
theorem local_of_stays {action : Reading α}
    (stays : ∀ c n, action (c.upTo n) = truncated n (action c))
    (same : ∀ c, Cursor.after id action c = c) : Local action := by
  intro c
  refine ⟨0, Nat.zero_le _, same c, fun n => ?_⟩
  rw [Nat.zero_add]
  exact stays c n

theorem Local.bind {action : Reading α} {next : α → Reading β} (first : Local action)
    (rest : ∀ a, Local (next a)) : Local (action >>= next) := by
  intro c
  obtain ⟨k, bound, moved, part⟩ := first c
  rw [Cursor.after] at moved
  cases read : action c with
  | ok a m =>
    rw [read] at moved part
    obtain rfl : m = c.skip k := moved
    obtain ⟨j, bound', moved', part'⟩ := rest a (c.skip k)
    rw [Cursor.pending_skip, List.length_drop] at bound'
    rw [Cursor.skip_skip] at moved'
    refine ⟨k + j, by omega, ?_, fun n => ?_⟩
    · rw [Cursor.after_bind, read]
      exact moved'
    · simp only [Bind.bind, EStateM.bind, Nat.add_assoc, part, read, truncated, part']
  | error e m =>
    rw [read] at moved part
    refine ⟨k, bound, ?_, fun n => ?_⟩
    · rw [Cursor.after_bind, read]
      exact moved
    · simp only [Bind.bind, EStateM.bind, part, read, truncated]

theorem closed_local : Closed fun _ action => Local action where
  pure a := local_of_stays (fun _ _ => rfl) fun _ => rfl
  bind first rest := first.bind rest
  fail fault _ := local_of_stays (fun _ _ => rfl) fun _ => rfl
  gather wanted tidy _ _ text := by
    intro c
    obtain ⟨found, k, bound, whole, part⟩ :=
      Cursor.gatherFrom_local wanted tidy c.pending c.consumed ⟨text, 1⟩
    refine ⟨k, bound, ?_, fun n => ?_⟩
    · rw [after_gather, whole]
      rfl
    · simp only [gather, Cursor.upTo, part, whole]
      cases found <;> rfl

/-- What an action gives and where it ends, with the lines that it takes only. -/
theorem Local.upTo {action : Reading α} (h : Local action) (c : Cursor) :
    ∃ k, k ≤ c.pending.length ∧ Cursor.after id action c = c.skip k ∧
      action.result (c.upTo k) = action.result c ∧
      Cursor.after id action (c.upTo k) = ⟨[], c.consumed + k⟩ := by
  obtain ⟨k, bound, moved, part⟩ := h c
  have alone : action (c.upTo k) = truncated 0 (action c) := part 0
  refine ⟨k, bound, moved, ?_, ?_⟩
  · rw [result, result, alone]
    cases action c <;> rfl
  · rw [Cursor.after] at moved ⊢
    rw [alone]
    cases read : action c with
    | ok a m | error e m =>
      rw [read] at moved
      obtain rfl : m = c.skip k := moved
      rfl

end Reading

namespace Cursor

variable {c : Cursor}

private theorem upTo_zero_of_atEnd (ended : c.pending = []) :
    c.upTo 0 = c ∧ c = ⟨[], c.consumed⟩ := by
  obtain ⟨pending, consumed⟩ := c
  obtain rfl : pending = [] := ended
  exact ⟨rfl, rfl⟩

/-- What is read as a line and where it ends, with the lines that it takes only. -/
theorem takeWithin?_local (c : Cursor) (base? : Option Nat) :
    ∃ k, k ≤ c.pending.length ∧ ((c.takeWithin? base?).map Prod.snd).getD c = c.skip k ∧
      ((c.upTo k).takeWithin? base?).map Prod.fst = (c.takeWithin? base?).map Prod.fst ∧
      (((c.upTo k).takeWithin? base?).map Prod.snd).getD (c.upTo k) = ⟨[], c.consumed + k⟩ := by
  cases read : c.takeWithin? base? with
  | some taken =>
    obtain ⟨line, after⟩ := taken
    obtain ⟨rfl, _, bound, _⟩ := takeWithin?_eq_some read
    have alone := takeWithin?_upTo read
    exact ⟨line.span, bound, rfl, by rw [alone]; rfl, by rw [alone]; rfl⟩
  | none =>
    have ended := takeWithin?_eq_none_iff.mp read
    obtain ⟨same, position⟩ := upTo_zero_of_atEnd ended
    refine ⟨0, Nat.zero_le _, rfl, ?_, ?_⟩
    · rw [same, read]
    · rw [same, read]
      exact position

theorem takePhysical?_local (c : Cursor) :
    ∃ k, k ≤ c.pending.length ∧ (c.takePhysical?.map Prod.snd).getD c = c.skip k ∧
      (c.upTo k).takePhysical?.map Prod.fst = c.takePhysical?.map Prod.fst ∧
      ((c.upTo k).takePhysical?.map Prod.snd).getD (c.upTo k) = ⟨[], c.consumed + k⟩ := by
  cases pending : c.pending with
  | nil =>
    obtain ⟨same, position⟩ := upTo_zero_of_atEnd pending
    refine ⟨0, Nat.zero_le _, ?_, ?_, ?_⟩
    · simp [takePhysical?, pending]
    · rw [same]
    · rw [same]
      simpa [takePhysical?, pending] using position
  | cons raw rest =>
    refine ⟨1, Nat.succ_le_succ (Nat.zero_le _), ?_, ?_, ?_⟩ <;>
      simp [takePhysical?, upTo, skip, pending]

end Cursor

namespace ReadOp

variable {op : ReadOp} {c : Cursor}

/-- Reading takes some of the next lines, depends on no others, and ends behind them. -/
theorem exists_taken (op : ReadOp) (c : Cursor) :
    ∃ k, k ≤ c.pending.length ∧ op.next c = c.skip k ∧ op.answer (c.upTo k) = op.answer c ∧
      op.next (c.upTo k) = ⟨[], c.consumed + k⟩ := by
  cases op with
  | line =>
    obtain ⟨k, bound, moved, same, alone⟩ := c.takeWithin?_local none
    exact ⟨k, bound, moved, congrArg ReadAnswer.line same, alone⟩
  | bodyLine base =>
    obtain ⟨k, bound, moved, same, alone⟩ := c.takeWithin?_local (some base)
    exact ⟨k, bound, moved, congrArg ReadAnswer.line same, alone⟩
  | physical =>
    obtain ⟨k, bound, moved, same, alone⟩ := c.takePhysical?_local
    exact ⟨k, bound, moved, congrArg ReadAnswer.physical same, alone⟩
  | statement code =>
    obtain ⟨k, bound, moved, same, alone⟩ := (Reading.closed_local.statement code).upTo c
    exact ⟨k, bound, moved, congrArg ReadAnswer.statement same, alone⟩
  | element text =>
    obtain ⟨k, bound, moved, same, alone⟩ := (Reading.closed_local.element text).upTo c
    exact ⟨k, bound, moved, congrArg ReadAnswer.element same, alone⟩

theorem next_follows (op : ReadOp) (c : Cursor) : (op.next c).Follows c := by
  obtain ⟨k, bound, moved, _⟩ := op.exists_taken c
  exact ⟨k, bound, moved⟩

/-- What has been read and what is left are what was to be read. -/
theorem taken_append_pending (op : ReadOp) (c : Cursor) :
    op.taken c ++ (op.next c).pending = c.pending := by
  obtain ⟨k, _, moved, _⟩ := op.exists_taken c
  rw [taken, moved, Cursor.consumed_skip, Nat.add_sub_cancel_left, Cursor.pending_skip]
  exact List.take_append_drop k c.pending

/-- Some line is read, as a logical line or as one of a body. -/
theorem exists_takeWithin? {line : Line} (h : op.answer c = .line (some line)) :
    ∃ base?, c.takeWithin? base? = some (line, op.next c) := by
  cases op with
  | line =>
    obtain ⟨⟨read, after⟩, taken, rfl⟩ := Option.map_eq_some_iff.mp (ReadAnswer.line.inj h)
    exact ⟨none, by rw [next, taken]; exact taken⟩
  | bodyLine base =>
    obtain ⟨⟨read, after⟩, taken, rfl⟩ := Option.map_eq_some_iff.mp (ReadAnswer.line.inj h)
    exact ⟨some base, by rw [next, taken]; exact taken⟩
  | _ => cases h

theorem statement_of_answer {read : Statement} (h : op.answer c = .statement (.ok read)) :
    ∃ code, op = .statement code ∧ Reading.statement code c = .ok read (op.next c) := by
  cases op with
  | statement code =>
    have given := ReadAnswer.statement.inj h
    refine ⟨code, rfl, ?_⟩
    rw [Reading.result] at given
    rw [next, Cursor.after]
    cases gathered : Reading.statement code c with
    | ok a m =>
      rw [gathered] at given
      cases given
      rfl
    | error e m =>
      rw [gathered] at given
      cases given
  | _ => cases h

theorem pending_of_physical {raw : Text} (h : op.answer c = .physical (some raw)) :
    ∃ rest, c.pending = raw :: rest ∧ (op.next c).consumed = c.consumed + 1 := by
  cases op with
  | physical =>
    have given := ReadAnswer.physical.inj h
    rw [next]
    rw [Cursor.takePhysical?] at given ⊢
    cases pending : c.pending with
    | nil => simp [pending] at given
    | cons first rest =>
      rw [pending] at given
      cases given
      exact ⟨rest, rfl, rfl⟩
  | _ => cases h

/-- A way of reading that needs a line finds none exactly at the end of the source. -/
theorem isNone_answer_iff (needs : op.needsLine = true) :
    (op.answer c).isNone = true ↔ c.pending = [] := by
  have decided : ∀ {taken? : Option (Line × Cursor)}, (taken? = none ↔ c.pending = []) →
      ((ReadAnswer.line (taken?.map Prod.fst)).isNone = true ↔ c.pending = []) := by
    intro taken? none
    rw [← none]
    cases taken? <;> simp [ReadAnswer.isNone]
  cases op with
  | line => exact decided Cursor.takeLine?_eq_none_iff
  | bodyLine base =>
    have none : c.takeWithin? (some base) = none ↔ c.pending = [] := Cursor.takeWithin?_eq_none_iff
    exact decided none
  | physical =>
    rw [answer, Cursor.takePhysical?]
    cases c.pending <;> simp [ReadAnswer.isNone]
  | statement | element => cases needs

/-- If there is one, at least one line is taken. -/
theorem consumed_lt_next (needs : op.needsLine = true) (more : c.pending ≠ []) :
    c.consumed < (op.next c).consumed := by
  have within : ∀ base?, c.consumed < (((c.takeWithin? base?).map Prod.snd).getD c).consumed := by
    intro base?
    cases read : c.takeWithin? base? with
    | none => exact absurd (Cursor.takeWithin?_eq_none_iff.mp read) more
    | some taken =>
      obtain ⟨line, after⟩ := taken
      obtain ⟨rfl, positive, _, _⟩ := Cursor.takeWithin?_eq_some read
      exact Nat.lt_add_of_pos_right positive
  cases op with
  | line => exact within none
  | bodyLine base => exact within (some base)
  | physical =>
    rw [next, Cursor.takePhysical?]
    cases pending : c.pending with
    | nil => exact absurd pending more
    | cons raw rest => exact Nat.lt_succ_self _
  | statement | element => cases needs

theorem next_eq_self_iff (needs : op.needsLine = true) : op.next c = c ↔ c.pending = [] := by
  constructor
  · intro stays
    refine Classical.byContradiction fun more => ?_
    have further := consumed_lt_next needs more
    rw [stays] at further
    exact Nat.lt_irrefl _ further
  · intro ended
    obtain ⟨k, bound, moved, _⟩ := op.exists_taken c
    rw [ended] at bound
    obtain rfl := Nat.le_zero.mp bound
    exact moved

structure AccountsAt (op : ReadOp) (c : Cursor) : Prop where
  /-- It never goes back, nor beyond the end of the source. -/
  forward : c.consumed ≤ (op.next c).consumed ∧ (op.next c).consumed ≤ c.lineCount
  /-- A logical line begins with the next line and covers all that are taken. -/
  line : ∀ line, op.answer c = .line (some line) →
    1 ≤ line.span ∧ line.span = (op.taken c).length ∧ line.number = c.consumed + 1 ∧
      line.lastNumber = (op.next c).consumed
  /-- A physical line is the only one that is taken. -/
  physical : ∀ raw, op.answer c = .physical (some raw) →
    op.taken c = [raw] ∧ (op.next c).consumed = c.consumed + 1
  /-- A statement covers the line that it begins on, which has been read before, and those that are
  taken, and its code is made of them. -/
  statement : ∀ read, op.answer c = .statement (.ok read) →
    read.span = (op.taken c).length + 1 ∧ (op.next c).consumed = c.consumed + (read.span - 1) ∧
      ∃ code, op = .statement code ∧ read.code = code.continued Text.trimEnd (op.taken c)
  /-- Where a line is needed, there is none exactly at the end of the source, and no line is taken
  exactly there. -/
  none : op.needsLine = true →
    ((op.answer c).isNone = true ↔ c.atEnd = true) ∧ (op.next c = c ↔ c.atEnd = true)
  /-- What is read depends on the lines that are taken only, and all of them are needed. -/
  exact : op.answer ⟨op.taken c, c.consumed⟩ = op.answer c ∧
    op.next ⟨op.taken c, c.consumed⟩ = ⟨[], (op.next c).consumed⟩

theorem accountsAt (op : ReadOp) (c : Cursor) : op.AccountsAt c := by
  obtain ⟨k, bound, moved, same, alone⟩ := op.exists_taken c
  have count : (op.next c).consumed = c.consumed + k := by rw [moved, Cursor.consumed_skip]
  have lines : (⟨op.taken c, c.consumed⟩ : Cursor) = c.upTo k := by
    rw [taken, count, Nat.add_sub_cancel_left, Cursor.upTo]
  have length : (op.taken c).length = k := by
    rw [taken, count, Nat.add_sub_cancel_left, List.length_take, Nat.min_eq_left bound]
  exact {
    forward := by
      rw [count, Cursor.lineCount]
      omega
    line := by
      intro line given
      obtain ⟨base?, read⟩ := exists_takeWithin? given
      obtain ⟨position, positive, _, number⟩ := Cursor.takeWithin?_eq_some read
      have span := congrArg Cursor.consumed position
      rw [Cursor.consumed_skip, count, Nat.add_left_cancel_iff] at span
      exact ⟨positive, by rw [length, span], number, Cursor.lastNumber_of_takeWithin? read⟩
    physical := by
      intro raw given
      obtain ⟨rest, pending, read⟩ := pending_of_physical given
      rw [taken, read, Nat.add_sub_cancel_left, pending]
      exact ⟨rfl, rfl⟩
    statement := by
      intro read given
      obtain ⟨code, same, gathered⟩ := statement_of_answer given
      obtain ⟨j, _, position, rfl, _⟩ := Reading.statement_eq_ok gathered
      have span := congrArg Cursor.consumed position
      rw [Cursor.consumed_skip, count, Nat.add_left_cancel_iff] at span
      subst span
      refine ⟨by rw [length], by rw [count, Nat.add_sub_cancel], code, same, ?_⟩
      rw [taken, count, Nat.add_sub_cancel_left]
    none := by
      intro needs
      rw [isNone_answer_iff needs, next_eq_self_iff needs, Cursor.atEnd, List.isEmpty_iff]
      exact ⟨Iff.rfl, Iff.rfl⟩
    exact := by
      rw [lines, count]
      exact ⟨same, alone⟩ }

end ReadOp

namespace Cursor

theorem nextAll_follows (c : Cursor) (ops : List ReadOp) : (c.nextAll ops).Follows c := by
  induction ops generalizing c with
  | nil => exact .refl c
  | cons op ops ih => exact (ih (op.next c)).trans (op.next_follows c)

/-- What has been read in several ways and what is left are what was to be read. -/
theorem takenAll_append_pending (c : Cursor) (ops : List ReadOp) :
    c.takenAll ops ++ (c.nextAll ops).pending = c.pending := by
  induction ops generalizing c with
  | nil => rfl
  | cons op ops ih =>
    rw [takenAll, nextAll_cons, List.append_assoc, ih, op.taken_append_pending]

end Cursor

/-- Reading in any ways and in any order accounts for every line of a source. The position never
goes beyond the end, the lines that have been read are the first ones of the source, as many as the
position says, and whichever way of reading comes next accounts for the lines that it takes. -/
theorem reads_account_for_lines (source : Text) (ops : List ReadOp) :
    ((Cursor.start source).nextAll ops).consumed ≤ source.physicalLines.length ∧
      (((Cursor.start source).nextAll ops).atEnd = true ↔
        ((Cursor.start source).nextAll ops).consumed = source.physicalLines.length) ∧
      (Cursor.start source).takenAll ops =
        source.physicalLines.take ((Cursor.start source).nextAll ops).consumed ∧
      ∀ op : ReadOp, op.AccountsAt ((Cursor.start source).nextAll ops) := by
  have whole := (Cursor.start source).takenAll_append_pending ops
  obtain ⟨k, bound, moved⟩ := (Cursor.start source).nextAll_follows ops
  have count : ((Cursor.start source).nextAll ops).consumed = k := by
    rw [moved, Cursor.consumed_skip]
    exact Nat.zero_add k
  have read : (Cursor.start source).takenAll ops = source.physicalLines.take k := by
    rw [moved, Cursor.pending_skip] at whole
    exact List.append_cancel_right (whole.trans (List.take_append_drop k _).symm)
  refine ⟨by rwa [count], ?_, by rw [count, read], fun op => op.accountsAt _⟩
  rw [count, Cursor.atEnd, List.isEmpty_iff, moved, Cursor.pending_skip, List.drop_eq_nil_iff]
  exact ⟨Nat.le_antisymm bound, fun all => Nat.le_of_eq all.symm⟩

/-- Two piped lines, an attribute block of two lines and a statement of two lines behind a blank
one. -/
example :
    (Cursor.start "a |\n b |\n%p\x7bx: 1,\n  y: 2\x7d\n\n= f(\n1)\n".toList).nextAll
        [.line, .line, .element "%p\x7bx: 1,".toList, .bodyLine 0, .physical,
          .statement "f(".toList, .line] = ⟨[], 7⟩ := by
  decide +kernel

end HamlTemplate
